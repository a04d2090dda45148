import BatchRun.Run.Course

/-!
# The tasks of a run

A run takes its course in two tasks. The caller does what is its own, and while it waits for a
worker, the worker does what is the worker's. Either owns the connections that it opens. The future
of the caller may be dropped at any moment; what becomes of a worker then is up to the handle by
which it was waited for.

* `Task`, `Worker`, `Run`: what is still to be done by whom, and what has been done;
* **`Run.Step`**: what may happen next;
* `Run.drop`: the caller is dropped;
* `Run.turn`: what happens next if nobody interferes.
-/

namespace BatchRun

/-- A task: what it has still to do, and the connections that it holds. -/
structure Task where
  left : List Entry
  held : List Connection

/-- A task that another one waits for. -/
structure Worker where
  task : Task
  handle : Handle
  /-- It has been told to stop, and gets no turn any more. One that is in the middle of a turn
  counts as told at the end of it. -/
  aborted : Bool

/-- The handle of a worker is dropped. -/
def Worker.unhandled (w : Worker) : Worker :=
  match w.handle with
  | .plain => w
  | .abortOnDrop => { w with aborted := true }

/-- Whether a deed is neither the start nor the return of a worker. -/
def Deed.isPlain : Deed → Bool
  | spawned _ | joined => false
  | _ => true

/-- A run on its way, with at most one worker at a time. -/
structure Run where
  now : Nat
  done : List Entry
  /-- The task of the caller, until that is dropped. -/
  caller : Option Task
  worker : Option Worker

namespace Run

/-- A run that is to take a course. -/
def start (es : List Entry) : Run := ⟨0, [], some ⟨es, []⟩, none⟩

/-- What the worker has still to do, unless it is aborted. -/
def workLeft (r : Run) : List Entry :=
  match r.worker with
  | some ⟨task, _, false⟩ => task.left
  | _ => []

/-- What the caller has still to do. -/
def callerLeft (r : Run) : List Entry :=
  match r.caller with
  | some task => task.left
  | none => []

/-- What is still to be done, the worker's part first. -/
def pending (r : Run) : List Entry := r.workLeft ++ r.callerLeft

/-- What may happen next. -/
inductive Step : Run → Run → Prop
  /-- Time passes, but nothing is missed that is still to be done. -/
  | pass {r : Run} {time : Nat} (hnow : r.now ≤ time)
      (hdue : ∀ e ∈ r.pending, time ≤ e.time) : Step r { r with now := time }
  /-- The caller does something itself. -/
  | own {now : Nat} {done left : List Entry} {e : Entry} {held : List Connection}
      {worker : Option Worker} (hdeed : e.deed.isPlain = true) (hdue : e.time ≤ now) :
      Step ⟨now, done, some ⟨e :: left, held⟩, worker⟩
        ⟨now, done ++ [e], some ⟨left, e.deed.hold held⟩, worker⟩
  /-- The caller sets a worker to work. -/
  | spawn {now : Nat} {done left : List Entry} {e : Entry} {held : List Connection}
      {handle : Handle} (hdeed : e.deed = .spawned handle) (hdue : e.time ≤ now) :
      Step ⟨now, done, some ⟨e :: left, held⟩, none⟩
        ⟨now, done ++ [e], some ⟨left.dropWhile Entry.onWorker, held⟩,
          some ⟨⟨left.takeWhile Entry.onWorker, []⟩, handle, false⟩⟩
  /-- The worker does something. -/
  | work {now : Nat} {done left : List Entry} {e : Entry} {held : List Connection}
      {handle : Handle} {caller : Option Task} (hdue : e.time ≤ now) :
      Step ⟨now, done, caller, some ⟨⟨e :: left, held⟩, handle, false⟩⟩
        ⟨now, done ++ [e], caller, some ⟨⟨left, e.deed.hold held⟩, handle, false⟩⟩
  /-- The worker has nothing left to do and comes back to the caller. -/
  | join {now : Nat} {done left : List Entry} {e : Entry} {held held' : List Connection}
      {handle : Handle} (hdeed : e.deed = .joined) (hdue : e.time ≤ now) :
      Step ⟨now, done, some ⟨e :: left, held⟩, some ⟨⟨[], held'⟩, handle, false⟩⟩
        ⟨now, done ++ [e], some ⟨left, held⟩, none⟩
  /-- An aborted worker is dropped, with all that it holds. -/
  | teardown {now : Nat} {done left : List Entry} {held : List Connection} {handle : Handle}
      {caller : Option Task} :
      Step ⟨now, done, caller, some ⟨⟨left, held⟩, handle, true⟩⟩
        ⟨now, done ++ Entry.releases now held, caller, none⟩

/-- The future of the caller is dropped, with all that it holds and the handle of its worker. -/
def drop (r : Run) : Run :=
  match r.caller with
  | none => r
  | some task =>
    ⟨r.now, r.done ++ Entry.releases r.now task.held, none, r.worker.map Worker.unhandled⟩

/-- The caller does what it has to do next. It waits if a worker is in its way, or if none is there
to come back. -/
def callerTurn (now : Nat) (done : List Entry) (e : Entry) (left : List Entry)
    (held : List Connection) (worker : Option Worker) : Run :=
  if e.deed.isPlain then ⟨now, done ++ [e], some ⟨left, e.deed.hold held⟩, worker⟩
  else
    match e.deed, worker with
    | .spawned handle, none =>
      ⟨now, done ++ [e], some ⟨left.dropWhile Entry.onWorker, held⟩,
        some ⟨⟨left.takeWhile Entry.onWorker, []⟩, handle, false⟩⟩
    | .joined, some _ => ⟨now, done ++ [e], some ⟨left, held⟩, none⟩
    | _, _ => ⟨now, done, some ⟨e :: left, held⟩, worker⟩

/-- What happens next if nobody interferes. A worker goes first. -/
def turn (r : Run) : Run :=
  match r.worker, r.caller with
  | some ⟨⟨_, held⟩, _, true⟩, caller =>
    ⟨r.now, r.done ++ Entry.releases r.now held, caller, none⟩
  | some ⟨⟨e :: left, held⟩, handle, false⟩, caller =>
    ⟨max r.now e.time, r.done ++ [e], caller, some ⟨⟨left, e.deed.hold held⟩, handle, false⟩⟩
  | worker, some ⟨e :: left, held⟩ =>
    callerTurn (max r.now e.time) r.done e left held worker
  | _, _ => r

/-- What happens in so many turns. -/
def turns : Nat → Run → Run
  | 0, r => r
  | n + 1, r => turns n r.turn

/-- What has been done so far, as a course of its own. -/
def past (r : Run) : Course Empty Unit := ⟨r.done, .returned (), r.now⟩

end Run

end BatchRun
