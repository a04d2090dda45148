import BatchRun.Run.Client

/-!
# Scripted clients

A scripted client answers every call as its script says, no matter what it was asked before: after
a delay a call may panic, hang or fail, and otherwise comes back with what the script holds.

* `Script`, `Scripted`, `Mishap`;
* **`Script.client`**.
-/

namespace BatchRun

/-- What goes wrong with a call. -/
inductive Mishap where
  | panics (message : String)
  | hangs
  | fails (fault : Fault)

/-- A call after a delay: it goes wrong, or comes back with an answer. -/
structure Scripted (α : Type) where
  delay : Nat
  mishap : Option Mishap
  answer : α

/-- An event of a scripted watch. -/
structure ScriptedEvent (α : Type) where
  delay : Nat
  /-- The event, or the message of a panic. -/
  item : Except String (WatchEvent α)

/-- A scripted watch, which may close after its last event. -/
structure ScriptedWatch (α : Type) where
  events : List (ScriptedEvent α)
  closes : Bool

/-- How each call of a client goes. -/
structure Script where
  create : Scripted Metadata
  getJob : Scripted (Option Job)
  pods : Scripted (ScriptedWatch Pod)
  jobs : Scripted (ScriptedWatch Job)
  /-- The lines of the log are forwarded before anything else happens. -/
  logs : Scripted (List String)
  podStatus : Scripted (Option Pod)

namespace Scripted

variable {α β : Type}

/-- How a scripted call comes back. -/
def outcome (value : α → β) (s : Scripted α) : Outcome Unit β :=
  match s.mishap with
  | some (.panics message) => .panics message
  | some .hangs => .hangs
  | some (.fails f) => .returns (.error f) ()
  | none => .returns (.ok (value s.answer)) ()

/-- What comes of a scripted call. -/
def reply (value : α → β) (s : Scripted α) : Reply Unit β := ⟨[], [], s.delay, s.outcome value⟩

end Scripted

/-- The events of a scripted watch as a feed. -/
def ScriptedWatch.feed {α : Type} (w : ScriptedWatch α) : Feed Unit α :=
  ⟨w.events.map fun (e : ScriptedEvent α) => ⟨e.delay, [], some e.item, ()⟩, w.closes⟩

/-- The client of a script. -/
def Script.client (s : Script) : Client Unit where
  createJob := fun _ _ _ => s.create.reply id
  getJob := fun _ _ _ => s.getJob.reply id
  watchPods := fun _ _ _ => s.pods.reply ScriptedWatch.feed
  watchJobs := fun _ _ _ => s.jobs.reply ScriptedWatch.feed
  followLogs := fun _ _ _ _ =>
    { s.logs.reply List.length with
      lines := s.logs.answer.map fun (raw : String) => ⟨0, raw⟩ }
  podStatus := fun _ _ _ => s.podStatus.reply id

end BatchRun
