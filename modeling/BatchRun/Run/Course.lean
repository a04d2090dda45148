import BatchRun.Cluster.Request
import BatchRun.Run.Notice

/-!
# Courses of events

An activity takes its course: things are done at certain times, counted from its start, and in the
end it returns, fails, panics or is stuck for good. Of two activities in a row the second starts
when the first has returned.

* `Call`, `Handle`, `Deed`, `Entry`: what is done, and when;
* `Course`, `Ending`: the course of an activity, a monad;
* **`Course.within`**: what has not ended by a deadline is cut off there;
* `Course.held`: a connection is open for as long as an activity lasts;
* `Course.spawn`: a worker takes the course, and its handle is waited for.
-/

namespace BatchRun

/-- A call of the client. -/
inductive Call where
  | createJob (ns : String) (manifest : Document)
  | getJob (ns name : String)
  | watchPods (ns selector : String)
  | watchJobs (ns selector : String)
  | followLogs (ns pod : String) (container : Option String)
  | podStatus (ns name : String)
  deriving Inhabited

/-- A connection to the cluster that stays open for a while. -/
inductive Connection where
  | podWatch
  | jobWatch
  | log
  deriving DecidableEq, Inhabited

/-- What a worker is waited for by. It also decides what becomes of the worker if nobody waits any
more. -/
inductive Handle where
  /-- The worker is left alone when the handle is dropped. -/
  | plain
  /-- The worker is aborted when the handle is dropped. -/
  | abortOnDrop
  deriving DecidableEq, Inhabited

/-- Something that is done in a run. -/
inductive Deed where
  | call (call : Call)
  /-- A call comes back. -/
  | answered (call : Call)
  | request (request : Request)
  /-- A line of output is forwarded. -/
  | line (text : String)
  | note (notice : Notice)
  | opened (connection : Connection)
  | released (connection : Connection)
  /-- The identity of the job is handed over to the one who waits for it. -/
  | started (job : JobIdentity)
  /-- A worker is set to work. What is its own to do comes right after this. -/
  | spawned (handle : Handle)
  /-- The worker has come back to the one who waits for it. -/
  | joined
  deriving Inhabited

/-- The connections that are open after a deed, of those that were open before. -/
def Deed.hold (held : List Connection) : Deed → List Connection
  | opened c => c :: held
  | released c => held.erase c
  | _ => held

/-- A deed, its time in milliseconds and whether a worker did it. -/
structure Entry where
  time : Nat
  onWorker : Bool
  deed : Deed
  deriving Inhabited

namespace Entry

/-- The same deed at a later time. -/
def later (n : Nat) (e : Entry) : Entry := { e with time := n + e.time }

/-- The same deed, done by a worker. -/
def byWorker (e : Entry) : Entry := { e with onWorker := true }

/-- The connections that are open after some deeds. -/
def stillOpen (es : List Entry) : List Connection :=
  es.foldl (fun (held : List Connection) (e : Entry) => e.deed.hold held) []

/-- Connections are released at a time. -/
def releases (time : Nat) (held : List Connection) : List Entry :=
  held.map fun (c : Connection) => ⟨time, false, .released c⟩

end Entry

/-- How an activity ends. -/
inductive Ending (ε α : Type) where
  | returned (value : α)
  | failed (error : ε)
  | panicked (message : String)
  /-- It never ends. -/
  | stuck
  deriving Inhabited

/-- Whether an activity ends at all. -/
def Ending.isOver {ε α : Type} : Ending ε α → Bool
  | stuck => false
  | _ => true

/-- The course of an activity: what is done, how it ends and after how many milliseconds. -/
structure Course (ε α : Type) where
  entries : List Entry
  ending : Ending ε α
  length : Nat
  deriving Inhabited

namespace Course

variable {ε α β : Type}

/-- Nothing is done. -/
def pure (value : α) : Course ε α := ⟨[], .returned value, 0⟩

/-- One activity after another. -/
def bind (c : Course ε α) (f : α → Course ε β) : Course ε β :=
  match c.ending with
  | .returned value =>
    let next := f value
    ⟨c.entries ++ next.entries.map (Entry.later c.length), next.ending,
      c.length + next.length⟩
  | .failed error => ⟨c.entries, .failed error, c.length⟩
  | .panicked message => ⟨c.entries, .panicked message, c.length⟩
  | .stuck => ⟨c.entries, .stuck, c.length⟩

instance : Monad (Course ε) where
  pure := Course.pure
  bind := Course.bind

/-- One deed. -/
def deed (d : Deed) : Course ε Unit := ⟨[⟨0, false, d⟩], .returned (), 0⟩

/-- A notice is given. -/
def note (notice : Notice) : Course ε Unit := deed (.note notice)

/-- Time passes. -/
def wait (n : Nat) : Course ε Unit := ⟨[], .returned (), n⟩

/-- A failure at once. -/
def fail (error : ε) : Course ε α := ⟨[], .failed error, 0⟩

/-- A panic at once. -/
def panic (message : String) : Course ε α := ⟨[], .panicked message, 0⟩

/-- Nothing ever happens. -/
def stuck : Course ε α := ⟨[], .stuck, 0⟩

/-- A connection is open from the start of an activity to its end. -/
def held (connection : Connection) (c : Course ε α) : Course ε α :=
  let opening : Entry := ⟨0, false, .opened connection⟩
  let closing : List Entry :=
    if c.ending.isOver then [⟨c.length, false, .released connection⟩] else []
  { c with entries := opening :: c.entries ++ closing }

/-- Whether an activity has ended by a time. -/
def endsBy (limit : Nat) (c : Course ε α) : Bool := c.ending.isOver && c.length ≤ limit

/-- What has not ended by a deadline is cut off there: what it held open is released, a notice is
given, and it fails. What happens at the deadline itself still counts. -/
def within (limit : Nat) (late : Notice) (error : ε) (c : Course ε α) : Course ε α :=
  if c.endsBy limit then c
  else
    let kept := c.entries.takeWhile fun (e : Entry) => e.time ≤ limit
    ⟨kept ++ Entry.releases limit (Entry.stillOpen kept) ++ [⟨limit, false, .note late⟩],
      .failed error, limit⟩

/-- A worker takes the course while its handle is waited for. It comes back with what it has come
to, or with the message of its panic. -/
def spawn {ε' : Type} (handle : Handle) (c : Course ε α) :
    Course ε' (Except String (Except ε α)) :=
  let work : List Entry := ⟨0, false, .spawned handle⟩ :: c.entries.map Entry.byWorker
  let back : List Entry := work ++ [⟨c.length, false, .joined⟩]
  match c.ending with
  | .returned value => ⟨back, .returned (.ok (.ok value)), c.length⟩
  | .failed error => ⟨back, .returned (.ok (.error error)), c.length⟩
  | .panicked message => ⟨back, .returned (.error message), c.length⟩
  | .stuck => ⟨work, .stuck, c.length⟩

/-! ## Views -/

/-- The calls of the client, in order. -/
def calls (c : Course ε α) : List Call :=
  c.entries.filterMap fun (e : Entry) =>
    match e.deed with
    | .call call => some call
    | _ => none

/-- The lines of output, in order. -/
def lines (c : Course ε α) : List String :=
  c.entries.filterMap fun (e : Entry) =>
    match e.deed with
    | .line text => some text
    | _ => none

/-- The notices, in order. -/
def notices (c : Course ε α) : List Notice :=
  c.entries.filterMap fun (e : Entry) =>
    match e.deed with
    | .note notice => some notice
    | _ => none

/-- The requests, in order. -/
def requests (c : Course ε α) : List Request :=
  c.entries.filterMap fun (e : Entry) =>
    match e.deed with
    | .request request => some request
    | _ => none

/-- The connections that were opened, in order. -/
def openings (c : Course ε α) : List Connection :=
  c.entries.filterMap fun (e : Entry) =>
    match e.deed with
    | .opened connection => some connection
    | _ => none

/-- The connections that were released, in order. -/
def releases (c : Course ε α) : List Connection :=
  c.entries.filterMap fun (e : Entry) =>
    match e.deed with
    | .released connection => some connection
    | _ => none

/-- The identity that was handed over. -/
def started? (c : Course ε α) : Option JobIdentity :=
  c.entries.findSome? fun (e : Entry) =>
    match e.deed with
    | .started job => some job
    | _ => none

end Course

end BatchRun
